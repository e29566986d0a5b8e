import FirstFollow.Equations

/-!
The equations of FIRST and FOLLOW as scripts: data that say which set is asked for next and which
part is handed out. A run of either equation acts out its script (`firstEquation_eq`,
`followEquation_eq`), so what is proved of all scripts holds of both.
-/

namespace FirstFollow

namespace OrderedSet

variable {α : Type} [StrictOrder α] [DecidableEq α]

theorem erase_eq_self {s : OrderedSet α} {a : α} (h : a ∉ s) : s.erase a = s := by
  ext b
  simp only [mem_erase, ne_eq, and_iff_left_iff_imp]
  rintro hb rfl
  exact h hb

@[simp] theorem empty_union (s : OrderedSet α) : ∅ ∪ s = s := by ext; simp

@[simp] theorem union_empty (s : OrderedSet α) : s ∪ ∅ = s := by ext; simp

theorem union_assoc (s t u : OrderedSet α) : s ∪ t ∪ u = s ∪ (t ∪ u) := by ext; simp [or_assoc]

end OrderedSet

theorem Low.min_assoc (a b c : Low) : (a.min b).min c = a.min (b.min c) := by
  cases a <;> cases b <;> cases c <;> simp [Nat.min_def]
  grind

namespace Answer

@[simp] theorem empty_set : (∅ : Answer).set = ∅ := rfl

@[simp] theorem empty_low : (∅ : Answer).low = .settled := rfl

@[simp] theorem join_set (a b : Answer) : (a.join b).set = a.set ∪ b.set := rfl

@[simp] theorem join_low (a b : Answer) : (a.join b).low = a.low.min b.low := rfl

protected theorem ext {a b : Answer} (hs : a.set = b.set) (hl : a.low = b.low) : a = b := by
  cases a; cases b; simp_all

@[simp] theorem empty_join (a : Answer) : (∅ : Answer).join a = a := Answer.ext (by simp) (by simp)

@[simp] theorem join_nothing (a : Answer) : a.join ⟨∅, .settled⟩ = a :=
  Answer.ext (by simp) (by simp)

@[simp] theorem join_empty (a : Answer) : a.join ∅ = a := join_nothing a

theorem join_assoc (a b c : Answer) : (a.join b).join c = a.join (b.join c) :=
  Answer.ext (OrderedSet.union_assoc _ _ _) (Low.min_assoc _ _ _)

end Answer

/-- What an equation does, each step chosen by the sets that it was given before. Besides the sets
of its own kind it may call for sets of another origin, which `ι` names. -/
inductive Script (ι : Type) where
  | done
  | fail (e : Error)
  | emit (set : SymbolSet) (next : Script ι)
  | ask (n : Symbol) (next : SymbolSet → Script ι)
  | call (i : ι) (next : SymbolSet → Script ι)

namespace Script

variable {ι σ : Type}

/-- Acts out a script; `sum` is what was found before. -/
def play (call : ι → Solve σ SymbolSet) (ask : Ask σ) (emit : SymbolSet → Solve σ Unit) :
    Script ι → Answer → Solve σ Answer
  | done, sum => return sum
  | fail e, _ => throw e
  | .emit A p, sum => do
    emit A
    p.play call ask emit (sum.join ⟨A, .settled⟩)
  | .ask n k, sum => do
    let a ← ask n
    (k a.set).play call ask emit (sum.join ⟨∅, a.low⟩)
  | .call i k, sum => do
    let A ← call i
    (k A).play call ask emit sum

/-- The equation that acts out a script for each nonterminal. -/
def equation (call : ι → Solve σ SymbolSet) (script : Symbol → Script ι) : Equation σ :=
  fun ask emit n => (script n).play call ask emit ∅

/-- A scan of a sequence, what it finds being handed on. -/
def scanning : Derivation → (SymbolSet → Script ι) → Script ι
  | [], k => k {.epsilon}
  | .nonterminal name :: rest, k =>
    .ask (.nonterminal name) fun A =>
      if .epsilon ∈ A then scanning rest fun B => k (A.erase .epsilon ∪ B) else k A
  | s :: _, k => k {s}

def alternatives : List Derivation → Script ι
  | [] => done
  | d :: ds => scanning d fun A => .emit A (alternatives ds)

/-- The contribution of one occurrence of `n`, before all that comes `next`. -/
def occurrence (n : Symbol) (o : Occurrence) (next : Script Derivation) : Script Derivation :=
  if o.suffix = [] then
    if o.producer = n then next
    else .ask o.producer fun A => .emit A next
  else
    .call o.suffix fun A => .emit (A.erase .epsilon) <|
      if .epsilon ∈ A then .ask o.producer fun B => .emit B next else next

def occurrences (n : Symbol) (os : List Occurrence) : Script Derivation :=
  os.foldr (occurrence n) done

variable {call : ι → Solve σ SymbolSet} {ask : Ask σ} {emit : SymbolSet → Solve σ Unit}

theorem play_scanning (d : Derivation) (k : SymbolSet → Script ι) (sum : Answer) :
    (scanning d k).play call ask emit sum = (do
      let a ← scan ask d
      (k a.set).play call ask emit (sum.join ⟨∅, a.low⟩)) := by
  induction d generalizing k sum with
  | nil => simp [scanning, scan]
  | cons s rest ih =>
    cases s with
    | nonterminal name =>
      simp only [scanning, scan, play, bind_assoc]
      congr 1
      funext a
      split
      · simp [ih, Answer.join, Low.min_assoc]
      · simp
    | _ => simp [scanning, scan]

theorem play_alternatives (ds : List Derivation) (sum : Answer) :
    (alternatives ds).play call ask emit sum = ds.foldlM (fun sum d => do
      let a ← scan ask d
      emit a.set
      return sum.join a) sum := by
  induction ds generalizing sum with
  | nil => rfl
  | cons d ds ih =>
    simp only [alternatives, play_scanning, play, ih, List.foldlM_cons, bind_assoc, pure_bind,
      Answer.join_assoc]
    congr 1
    funext a
    simp [Answer.join]

theorem play_occurrence [Recorder σ] {g : Grammar} {b : Budget} {n : Symbol} {o : Occurrence}
    {next : Script Derivation} {ask : Ask (Session σ)}
    {emit : SymbolSet → Solve (Session σ) Unit} {sum : Answer} :
    (occurrence n o next).play (fun d => Solve.within (firstOfSequence g b d)) ask emit sum = (do
      let a ← followPart g b ask emit n o
      next.play (fun d => Solve.within (firstOfSequence g b d)) ask emit (sum.join a)) := by
  rw [occurrence, followPart]
  split
  · split
    · simp
    · simp only [play, bind_assoc, pure_bind, Answer.join_assoc]
      congr 1
      funext a
      simp [Answer.join]
  · simp only [play, bind_assoc]
    congr 1
    funext A
    by_cases h : Symbol.epsilon ∈ A
    · simp [h, play, Answer.join, OrderedSet.union_assoc]
    · simp [h, OrderedSet.erase_eq_self h]

theorem play_occurrences [Recorder σ] {g : Grammar} {b : Budget} {n : Symbol}
    {ask : Ask (Session σ)} {emit : SymbolSet → Solve (Session σ) Unit} (os : List Occurrence)
    (sum : Answer) :
    (occurrences n os).play (fun d => Solve.within (firstOfSequence g b d)) ask emit sum =
      os.foldlM (fun sum o => return sum.join (← followPart g b ask emit n o)) sum := by
  induction os generalizing sum with
  | nil => rfl
  | cons o os ih =>
    simp only [occurrences, List.foldr_cons, List.foldlM_cons, bind_assoc, pure_bind] at ih ⊢
    rw [play_occurrence]
    simp only [ih]

end Script

/-! ### The two equations -/

def firstScript (g : Grammar) (n : Symbol) : Script Empty :=
  match g.derivations n with
  | .ok ds => .alternatives ds
  | .error e => .fail e

def startSet (g : Grammar) (n : Symbol) : SymbolSet := if n = g.startSymbol then {.endMarker} else ∅

def followScript (g : Grammar) (index : Grammar.OccurrenceIndex) (n : Symbol) : Script Derivation :=
  .emit (startSet g n) <|
    match Grammar.lookup index n with
    | .ok os => .occurrences n os
    | .error e => .fail e

variable {σ : Type}

theorem firstEquation_eq (g : Grammar) :
    (firstEquation g : Equation σ) = Script.equation nofun (firstScript g) := by
  funext ask emit n
  rw [firstEquation, Script.equation, firstScript]
  cases g.derivations n with
  | ok ds => exact (Script.play_alternatives ds ∅).symm
  | error e => rfl

theorem followEquation_eq [Recorder σ] (g : Grammar) (index : Grammar.OccurrenceIndex)
    (b : Budget) :
    (followEquation g index b : Equation (Session σ)) =
      Script.equation (fun d => Solve.within (firstOfSequence g b d)) (followScript g index) := by
  funext ask emit n
  have hstart : (if n = g.startSymbol then ⟨{.endMarker}, .settled⟩ else ∅ : Answer) =
      ⟨startSet g n, .settled⟩ := by
    rw [startSet]
    split <;> rfl
  rw [followEquation, Script.equation, followScript, hstart, Script.play, Answer.empty_join]
  cases Grammar.lookup index n with
  | ok os => simp only [Script.play_occurrences]; rfl
  | error e => rfl

end FirstFollow
