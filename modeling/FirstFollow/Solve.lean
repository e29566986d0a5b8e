import FirstFollow.Error
import FirstFollow.Memo

/-!
Solving a system of set equations on demand. The equation of a nonterminal may ask for the sets
of others. One that is asked for while it is unfinished answers with the part found so far and
its number. A set that rests on an unfinished one with a lower number stays on the stack; when
the lowest of such a group is through, the group is computed again until none of its sets grows,
and is then closed as a whole.

The numbers that equations return while a group is computed again are not looked at.
-/

namespace FirstFollow

/-- States that can take down events. -/
class Recorder (σ : Type) where
  record : Event → σ → σ

instance : Recorder Trace := ⟨fun e t => t.push e⟩

/-- A memo in use, and what is around it. -/
structure Session (σ : Type) where
  memo : Memo
  around : σ
  deriving DecidableEq

instance {σ : Type} [Recorder σ] : Recorder (Session σ) :=
  ⟨fun e s => { s with around := Recorder.record e s.around }⟩

/-- Computations that use a memo. What they did before they failed stays done. -/
abbrev Solve (σ : Type) := ExceptT Error (StateM (Session σ))

structure Answer where
  set : SymbolSet
  low : Low
  deriving DecidableEq

namespace Answer

instance : EmptyCollection Answer := ⟨⟨∅, .settled⟩⟩

/-- Both sets together rest on what either rests on. -/
def join (a b : Answer) : Answer := ⟨a.set ∪ b.set, a.low.min b.low⟩

end Answer

abbrev Ask (σ : Type) := Symbol → Solve σ Answer

/-- How the set of a nonterminal follows from others. An equation asks for other sets by its first
argument and hands out each part by its second one as soon as it is found. -/
abbrev Equation (σ : Type) := Ask σ → (SymbolSet → Solve σ Unit) → Ask σ

/-- How deep sets may be begun within each other, and how often a group may be computed again. -/
structure Budget where
  depth : Nat
  passes : Nat
  deriving DecidableEq

namespace Solve

variable {σ : Type}

/-! ### Running -/

@[simp] theorem pure_apply {α : Type} (a : α) (s : Session σ) :
    (pure a : Solve σ α) s = (.ok a, s) := rfl

@[simp] theorem throw_apply {α : Type} (e : Error) (s : Session σ) :
    (throw e : Solve σ α) s = (.error e, s) := rfl

theorem bind_apply {α β : Type} (x : Solve σ α) (f : α → Solve σ β) (s : Session σ) :
    (x >>= f) s = match x s with
      | (.ok a, s') => f a s'
      | (.error e, s') => (.error e, s') := by
  show (match x s with | (a, s') => ExceptT.bindCont f a s') = _
  rcases x s with ⟨_ | a, s'⟩ <;> rfl

theorem bind_ok {α β : Type} {x : Solve σ α} {f : α → Solve σ β} {s s' : Session σ} {a : α}
    (h : x s = (.ok a, s')) : (x >>= f) s = f a s' := by
  rw [bind_apply, h]

/-! ### Using the memo -/

def memo : Solve σ Memo := return (← get).memo

def changeMemo (f : Memo → Memo) : Solve σ Unit := modify fun s => { s with memo := f s.memo }

@[simp] theorem memo_apply (s : Session σ) : (memo : Solve σ Memo) s = (.ok s.memo, s) := rfl

@[simp] theorem changeMemo_apply (f : Memo → Memo) (s : Session σ) :
    changeMemo f s = (.ok (), { s with memo := f s.memo }) := rfl

def grow (n : Symbol) (more : SymbolSet) : Solve σ Unit := changeMemo (·.grow n more)

/-- The part of an unfinished set that is found so far. -/
def part (n : Symbol) : Solve σ SymbolSet := do
  match (← memo).part? n with
  | some p => return p
  | none => throw (.notOpen n)

def doneSet (n : Symbol) : Solve σ SymbolSet := do
  match (← memo).done.get? n with
  | some s => return s
  | none => throw (.notOpen n)

variable [Recorder σ]

/-- Takes down an event of the kind of sets that the memo is for. -/
def record (e : SetKind → Event) : Solve σ Unit :=
  modify fun s => { s with around := Recorder.record (e s.memo.kind) s.around }

@[simp] theorem record_apply (e : SetKind → Event) (s : Session σ) :
    record e s = (.ok (), { s with around := Recorder.record (e s.memo.kind) s.around }) := rfl

/-- Answers from the memo; a set that is not begun is left to `enter`. -/
def consult (n : Symbol) (enter : Solve σ Answer) : Solve σ Answer := do
  let m ← memo
  match m.done.get? n with
  | some s => return ⟨s, .settled⟩
  | none =>
    match m.unfinished.get? n with
    | some u =>
      record (.reentered · n u.part)
      return ⟨u.part, .number u.number⟩
    | none => enter

/-! ### Settling a group -/

/-- Computes a member of a group again and says whether its set has grown. -/
def recompute (eq : Equation σ) (ask : Ask σ) (first : Nat) (n : Symbol) : Solve σ Bool := do
  let answer ← eq ask (fun _ => pure ()) n
  record (.recomputed · first n answer.low)
  if answer.set ⊆ (← part n) then return false
  grow n answer.set
  return true

/-- One pass over the group above `mark`. -/
def pass (eq : Equation σ) (ask : Ask σ) (first mark : Nat) : Solve σ Bool := do
  let members := (← memo).group.drop mark
  members.foldlM (fun grown n => return (← recompute eq ask first n) || grown) false

/-- Passes are made until one finds no set grown and no nonterminal begun. -/
def settle (eq : Equation σ) (ask : Ask σ) (first mark : Nat) : Nat → Solve σ Unit
  | 0 => throw .outOfBudget
  | passes + 1 => do
    let size := (← memo).group.length
    let grown ← pass eq ask first mark
    if grown || size < (← memo).group.length then settle eq ask first mark passes

/-- Completes what stands on the stack above `mark`. -/
def close (mark : Nat) : Solve σ Unit := do
  let members := (← memo).group.drop mark
  changeMemo fun m => { m with group := m.group.take mark }
  record (.closed · members)
  members.forM fun n => do
    let set ← part n
    changeMemo (·.complete n set)
    record (.completed · n set)

/-! ### Asking -/

/-- Begins the set of `n` and completes it unless it rests on an unfinished set below it. -/
def enter (eq : Equation σ) (passes : Nat) (ask : Ask σ) (n : Symbol) : Solve σ Answer := do
  let m ← memo
  changeMemo (·.start n)
  record (.entered · n m.count)
  let answer ← eq ask (grow n) n
  if answer.low.below m.count then
    return ⟨← part n, answer.low⟩
  let size := (← memo).group.length - m.group.length
  if answer.low ≠ .settled ∨ 1 < size then
    record (.settling · size)
    settle eq ask m.count m.group.length passes
  close m.group.length
  return ⟨← doneSet n, .settled⟩

/-- The set of `n`, with at most `depth` sets begun within each other. -/
def ask (eq : Equation σ) (passes : Nat) : Nat → Ask σ
  | 0, n => consult n (throw .outOfBudget)
  | depth + 1, n => consult n (enter eq passes (ask eq passes depth) n)

/-- A computation on the inner session, its own memo left as it is. -/
def within {α : Type} (x : Solve σ α) : Solve (Session σ) α := fun s =>
  let (result, around) := StateT.run (ExceptT.run x) s.around
  (result, { s with around })

end Solve

/-- Asks for sets that follow from an equation. -/
def Equation.solve {σ : Type} [Recorder σ] (eq : Equation σ) (b : Budget) : Ask σ :=
  Solve.ask eq b.passes b.depth

end FirstFollow
