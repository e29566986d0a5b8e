import FirstFollow.Proofs.Script
import FirstFollow.Table

/-!
The same computations with different budgets. A computation that does not use up its budget goes the
same way with a larger one (`Solve.Agrees.ask_le`), so a builder whose questions do not use up its
budget has the same outcomes and memos with any larger budget (`Builder.run_grant`).
-/

namespace FirstFollow

instance : LE Budget := ⟨fun b b' => b.depth ≤ b'.depth ∧ b.passes ≤ b'.passes⟩

namespace Solve

variable {ι σ α β : Type}

/-- Wherever `x` does not use up its budget, `y` does the same. -/
def Agrees (x y : Solve σ α) : Prop := ∀ s, (x s).1 ≠ .error .outOfBudget → y s = x s

namespace Agrees

theorem refl (x : Solve σ α) : Agrees x x := fun _ _ => rfl

theorem outOfBudget (y : Solve σ α) : Agrees (throw .outOfBudget) y := fun _ h => absurd rfl h

theorem bind {x y : Solve σ α} {f f' : α → Solve σ β} (hx : Agrees x y)
    (hf : ∀ a, Agrees (f a) (f' a)) : Agrees (x >>= f) (y >>= f') := by
  intro s h
  rw [bind_apply] at h
  rw [bind_apply, bind_apply]
  rcases hrun : x s with ⟨e | a, s'⟩
  · rw [hrun] at h
    rw [hx s (by simpa [hrun] using h), hrun]
  · rw [hrun] at h
    rw [hx s (by simp [hrun]), hrun]
    exact hf a s' h

/-- A common beginning. -/
theorem next (x : Solve σ α) {f f' : α → Solve σ β} (hf : ∀ a, Agrees (f a) (f' a)) :
    Agrees (x >>= f) (x >>= f') :=
  (refl x).bind hf

theorem foldlM {f f' : β → α → Solve σ β} (hf : ∀ b a, Agrees (f b a) (f' b a)) (as : List α)
    (b : β) : Agrees (as.foldlM f b) (as.foldlM f' b) := by
  induction as generalizing b with
  | nil => exact refl _
  | cons a as ih =>
    rw [List.foldlM_cons, List.foldlM_cons]
    exact (hf b a).bind ih

theorem mapM {f f' : α → Solve σ β} (hf : ∀ a, Agrees (f a) (f' a)) (as : List α) :
    Agrees (as.mapM f) (as.mapM f') := by
  induction as with
  | nil => exact refl _
  | cons a as ih =>
    rw [List.mapM_cons, List.mapM_cons]
    exact (hf a).bind fun _ => ih.bind fun _ => refl _

theorem within {x y : Solve σ α} (h : Agrees x y) : Agrees (within x) (within y) := by
  intro s hs
  have hxy : y s.around = x s.around := h s.around hs
  show ((y s.around).1, { s with around := (y s.around).2 }) = _
  rw [hxy]
  rfl

/-! ### Solving -/

variable {call call' : ι → Solve σ SymbolSet} {script : Symbol → Script ι} {ask ask' : Ask σ}

theorem play (hcall : ∀ i, Agrees (call i) (call' i)) (hask : ∀ n, Agrees (ask n) (ask' n))
    (emit : SymbolSet → Solve σ Unit) (p : Script ι) (sum : Answer) :
    Agrees (p.play call ask emit sum) (p.play call' ask' emit sum) := by
  induction p generalizing sum with
  | done => exact refl _
  | fail e => exact refl _
  | emit A p ih => exact next _ fun _ => ih _
  | ask n k ih => exact (hask n).bind fun a => ih _ _
  | call i k ih => exact (hcall i).bind fun A => ih _ _

theorem scan (hask : ∀ n, Agrees (ask n) (ask' n)) (d : Derivation) :
    Agrees (scan ask d) (scan ask' d) := by
  induction d with
  | nil => exact refl _
  | cons s rest ih =>
    cases s with
    | nonterminal name =>
      refine (hask _).bind fun head => ?_
      split
      · exact ih.bind fun _ => refl _
      · exact refl _
    | _ => exact refl _

variable [Recorder σ]

theorem pass (hcall : ∀ i, Agrees (call i) (call' i)) (hask : ∀ n, Agrees (ask n) (ask' n))
    (first mark : Nat) : Agrees (pass (Script.equation call script) ask first mark)
      (pass (Script.equation call' script) ask' first mark) := by
  refine next _ fun m => foldlM (fun grown n => ?_) _ _
  have hrecompute : Agrees (recompute (Script.equation call script) ask first n)
      (recompute (Script.equation call' script) ask' first n) :=
    (play hcall hask _ _ _).bind fun _ => refl _
  exact hrecompute.bind fun _ => refl _

theorem settle (hcall : ∀ i, Agrees (call i) (call' i)) (hask : ∀ n, Agrees (ask n) (ask' n))
    (first mark : Nat) {passes passes' : Nat} (hle : passes ≤ passes') :
    Agrees (settle (Script.equation call script) ask first mark passes)
      (settle (Script.equation call' script) ask' first mark passes') := by
  induction passes generalizing passes' with
  | zero => exact outOfBudget _
  | succ passes ih =>
    obtain ⟨passes', rfl⟩ : ∃ p, passes' = p + 1 := ⟨passes' - 1, by omega⟩
    refine next _ fun m => (pass hcall hask first mark).bind fun grown => next _ fun m' => ?_
    split
    · exact ih (by omega)
    · exact refl _

theorem enter (hcall : ∀ i, Agrees (call i) (call' i)) (hask : ∀ n, Agrees (ask n) (ask' n))
    {passes passes' : Nat} (hle : passes ≤ passes') (n : Symbol) :
    Agrees (enter (Script.equation call script) passes ask n)
      (enter (Script.equation call' script) passes' ask' n) := by
  refine next _ fun m => next _ fun _ => next _ fun _ => ?_
  refine (play hcall hask _ _ _).bind fun answer => ?_
  split
  · exact refl _
  · refine next _ fun m' => ?_
    dsimp only
    split
    · exact next _ fun _ => (settle hcall hask _ _ hle).bind fun _ => refl _
    · exact refl _

theorem consult {x y : Solve σ Answer} (h : Agrees x y) (n : Symbol) :
    Agrees (consult n x) (consult n y) := by
  refine next _ fun m => ?_
  split
  · exact refl _
  · split
    · exact refl _
    · exact h

/-- More depth and more passes change nothing where the budget was not used up. -/
theorem ask_le (hcall : ∀ i, Agrees (call i) (call' i)) {passes passes' depth depth' : Nat}
    (hpasses : passes ≤ passes') (hdepth : depth ≤ depth') (n : Symbol) :
    Agrees (Solve.ask (Script.equation call script) passes depth n)
      (Solve.ask (Script.equation call' script) passes' depth' n) := by
  induction depth generalizing depth' n with
  | zero =>
    cases depth' with
    | zero => exact (outOfBudget _).consult n
    | succ depth' => exact (outOfBudget _).consult n
  | succ depth ih =>
    obtain ⟨depth', rfl⟩ : ∃ d, depth' = d + 1 := ⟨depth' - 1, by omega⟩
    exact (enter hcall (ih (by omega)) hpasses n).consult n

end Agrees

end Solve

section

variable {σ : Type} [Recorder σ] {g : Grammar} {index : Grammar.OccurrenceIndex} {b b' : Budget}

theorem firstOf_agrees (h : b ≤ b') (n : Symbol) :
    Solve.Agrees (firstOf g b n : Solve σ Answer) (firstOf g b' n) := by
  rw [firstOf, firstOf, firstEquation_eq]
  exact Solve.Agrees.ask_le nofun h.2 h.1 n

theorem firstOfSequence_agrees (h : b ≤ b') (d : Derivation) :
    Solve.Agrees (firstOfSequence g b d : Solve σ SymbolSet) (firstOfSequence g b' d) := by
  rw [firstOfSequence, firstOfSequence]
  exact (Solve.Agrees.scan (firstOf_agrees h) d).bind fun _ => .refl _

theorem followOf_agrees (h : b ≤ b') (n : Symbol) :
    Solve.Agrees (followOf g index b n : Solve (Session σ) Answer) (followOf g index b' n) := by
  rw [followOf, followOf, followEquation_eq, followEquation_eq]
  exact Solve.Agrees.ask_le (fun d => (firstOfSequence_agrees h d).within) h.2 h.1 n

end

/-! ### Builders -/

namespace Builder

variable {g : Grammar} {index : Grammar.OccurrenceIndex} {b : Builder} {c c' : Budget}

theorem firstSet_agrees (h : c ≤ c') (n : Symbol) :
    Solve.Agrees (firstSet g c n) (firstSet g c' n) :=
  ((firstOf_agrees h n).bind fun _ => .refl _).within

theorem sequenceSet_agrees (h : c ≤ c') (d : Derivation) :
    Solve.Agrees (sequenceSet g c d) (sequenceSet g c' d) :=
  (firstOfSequence_agrees h d).within

theorem followSet_agrees (h : c ≤ c') (n : Symbol) :
    Solve.Agrees (followSet g index c n) (followSet g index c' n) :=
  (followOf_agrees h n).bind fun _ => .refl _

/-- The builder with another budget. -/
def grant (b : Builder) (c : Budget) : Builder := { b with budget := c }

theorem compute_grant {x y : Compute SymbolSet} (h : Solve.Agrees x y)
    (hb : (b.compute x).1.reply ≠ .error .outOfBudget) (c : Budget) :
    (b.grant c).compute y = ((b.compute x).1, (b.compute x).2.grant c) := by
  have hx : (x b.session).1 ≠ .error .outOfBudget := by
    intro hx
    apply hb
    show (x b.session).1.map Reply.set = _
    rw [hx]
    rfl
  have hy : StateT.run (ExceptT.run y) b.session = StateT.run (ExceptT.run x) b.session :=
    h b.session hx
  have hsession : (b.grant c).session = b.session := rfl
  simp only [compute, hsession, hy]
  rfl

theorem step_grant (hc : b.budget ≤ c) (q : Step)
    (hb : (b.step q).1.reply ≠ .error .outOfBudget) :
    (b.grant c).step q = ((b.step q).1, (b.step q).2.grant c) := by
  cases q with
  | first n => exact compute_grant (firstSet_agrees hc n) hb c
  | follow n => exact compute_grant (followSet_agrees hc n) hb c
  | sequence d => exact compute_grant (sequenceSet_agrees hc d) hb c
  | every value => rfl

theorem step_budget (b : Builder) (q : Step) : (b.step q).2.budget = b.budget := by
  cases q <;> rfl

/-- Steps that do not use up their budget come to the same with a larger one. -/
theorem run_grant (hc : b.budget ≤ c) (qs : List Step)
    (hb : ∀ o ∈ (b.run qs).1, o.reply ≠ .error .outOfBudget) :
    (b.grant c).run qs = ((b.run qs).1, (b.run qs).2.grant c) := by
  induction qs generalizing b with
  | nil => rfl
  | cons q qs ih =>
    have hstep := step_grant hc q (hb _ List.mem_cons_self)
    have hrest := ih (b := (b.step q).2) (b.step_budget q ▸ hc)
      fun o ho => hb o (List.mem_cons_of_mem _ ho)
    simp only [run, hstep, hrest]

end Builder

theorem Table.rows_agrees {g : Grammar} {index : Grammar.OccurrenceIndex} {b b' : Budget}
    (h : b ≤ b') (names : List Symbol) :
    Solve.Agrees (rows g index b names) (rows g index b' names) :=
  .mapM (fun n => (Builder.firstSet_agrees h n).bind fun _ =>
    (Builder.followSet_agrees h n).bind fun _ => .refl _) names

end FirstFollow
